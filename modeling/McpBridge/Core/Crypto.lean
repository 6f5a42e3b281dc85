import McpBridge.Lib.Sha256
import McpBridge.Lib.JsonText
/-!
# The hash of the credentials (`core/crypto.cpp`)

`sha256` hashes the full blocks as they come and then a buffer of one or two
blocks with what is left, the padding and the length. `sha256_eq_digest` says
that this is SHA-256 of the whole message, wherever the last block ends.
-/

open McpBridge.Lib McpBridge.Lib.Sha256

namespace McpBridge.Core.Crypto

def K : List UInt32 := [
  0x428a2f98, 0x71374491, 0xb5c0fbcf, 0xe9b5dba5, 0x3956c25b, 0x59f111f1, 0x923f82a4, 0xab1c5ed5,
  0xd807aa98, 0x12835b01, 0x243185be, 0x550c7dc3, 0x72be5d74, 0x80deb1fe, 0x9bdc06a7, 0xc19bf174,
  0xe49b69c1, 0xefbe4786, 0x0fc19dc6, 0x240ca1cc, 0x2de92c6f, 0x4a7484aa, 0x5cb0a9dc, 0x76f988da,
  0x983e5152, 0xa831c66d, 0xb00327c8, 0xbf597fc7, 0xc6e00bf3, 0xd5a79147, 0x06ca6351, 0x14292967,
  0x27b70a85, 0x2e1b2138, 0x4d2c6dfc, 0x53380d13, 0x650a7354, 0x766a0abb, 0x81c2c92e, 0x92722c85,
  0xa2bfe8a1, 0xa81a664b, 0xc24b8b70, 0xc76c51a3, 0xd192e819, 0xd6990624, 0xf40e3585, 0x106aa070,
  0x19a4c116, 0x1e376c08, 0x2748774c, 0x34b0bcb5, 0x391c0cb3, 0x4ed8aa4a, 0x5b9cca4f, 0x682e6ff3,
  0x748f82ee, 0x78a5636f, 0x84c87814, 0x8cc70208, 0x90befffa, 0xa4506ceb, 0xbef9a3f7, 0xc67178f2]

def rotr (x n : UInt32) : UInt32 := (x >>> n) ||| (x <<< (32 - n))

/-- One turn of the first loop of `processBlock`. -/
def loadWord (block : Str) (i : Nat) : UInt32 :=
  ((block.getD (i * 4) 0).toUInt32 <<< 24) ||| ((block.getD (i * 4 + 1) 0).toUInt32 <<< 16) |||
    ((block.getD (i * 4 + 2) 0).toUInt32 <<< 8) ||| (block.getD (i * 4 + 3) 0).toUInt32

/-- One turn of the second loop; `W` is filled up to `i`. -/
def extendWords (W : List UInt32) (i : Nat) : List UInt32 :=
  let s0 := rotr (W.getD (i - 15) 0) 7 ^^^ rotr (W.getD (i - 15) 0) 18 ^^^ (W.getD (i - 15) 0 >>> 3)
  let s1 := rotr (W.getD (i - 2) 0) 17 ^^^ rotr (W.getD (i - 2) 0) 19 ^^^ (W.getD (i - 2) 0 >>> 10)
  W ++ [W.getD (i - 16) 0 + s0 + W.getD (i - 7) 0 + s1]

/-- One turn of the third loop. -/
def mixWord (W : List UInt32) (v : Vars UInt32) (i : Nat) : Vars UInt32 :=
  let S1 := rotr v.e 6 ^^^ rotr v.e 11 ^^^ rotr v.e 25
  let ch := (v.e &&& v.f) ^^^ (~~~v.e &&& v.g)
  let t1 := v.h + S1 + ch + K.getD i 0 + W.getD i 0
  let S0 := rotr v.a 2 ^^^ rotr v.a 13 ^^^ rotr v.a 22
  let mj := (v.a &&& v.b) ^^^ (v.a &&& v.c) ^^^ (v.b &&& v.c)
  let t2 := S0 + mj
  ⟨t1 + t2, v.a, v.b, v.c, v.d + t1, v.e, v.f, v.g⟩

def messageWords (block : Str) : List UInt32 := (List.range' 16 48).foldl extendWords ((List.range 16).map (loadWord block))

/-- Reads the 64 bytes that `block` starts with. -/
def processBlock (block : Str) (state : Vars UInt32) : Vars UInt32 :=
  state.add ((List.range 64).foldl (mixWord (messageWords block)) state)

/-- The loop over the full blocks: what is left, and the state. -/
def fullBlocks (bytes : Str) (state : Vars UInt32) : Str × Vars UInt32 :=
  if 64 ≤ bytes.length then fullBlocks (bytes.drop 64) (processBlock bytes state) else (bytes, state)
termination_by bytes.length
decreasing_by
  rw [List.length_drop]
  omega

def initialState : Vars UInt32 :=
  ⟨0x6a09e667, 0xbb67ae85, 0x3c6ef372, 0xa54ff53a, 0x510e527f, 0x9b05688c, 0x1f83d9ab, 0x5be0cd19⟩

/-- The buffer of 128 bytes; the first `padLen` are used. -/
def padBuffer (bytes : Str) (padLen : Nat) (bitLen : UInt64) : Str :=
  let pad := List.replicate 128 0
  let pad := bytes ++ pad.drop bytes.length
  let pad := pad.set bytes.length 0x80
  (List.range 8).foldl (fun pad i => pad.set (padLen - 1 - i) (bitLen >>> (8 * UInt64.ofNat i)).toUInt8) pad

/-- The turn of the last loop for one word. -/
def storeWord (x : UInt32) : Str := [(x >>> 24).toUInt8, (x >>> 16).toUInt8, (x >>> 8).toUInt8, x.toUInt8]

def sha256 (data : Str) : Str :=
  let (bytes, state) := fullBlocks data initialState
  let padLen := if bytes.length < 56 then 64 else 128
  let bitLen := UInt64.ofNat data.length * 8
  let pad := padBuffer bytes padLen bitLen
  let state := processBlock pad state
  let state := if padLen = 128 then processBlock (pad.drop 64) state else state
  state.toList.flatMap storeWord

def hex : Str := lit "0123456789abcdef"

def toHex (data : Str) : Str :=
  data.flatMap fun (b : UInt8) => [hex.getD (b >>> 4).toNat 0, hex.getD (b &&& 0xf).toNat 0]

def sha256Hex (input : Str) : Str := toHex (sha256 input)

def sha256SaltedHex (saltHex token : Str) : Str := sha256Hex (saltHex ++ token)

/-! ## Words -/

theorem K_eq : K.map UInt32.toBitVec = Sha256.K := by decide +kernel

theorem initialState_eq : initialState.map UInt32.toBitVec = H0 := by decide +kernel

theorem toBitVec_rotr (x : UInt32) {n : UInt32} (h0 : 0 < n.toNat) (h : n.toNat < 32) :
    (rotr x n).toBitVec = x.toBitVec.rotateRight n.toNat := by
  have hn : (n.toBitVec % 32).toNat = n.toNat := by
    rw [BitVec.toNat_umod]
    exact Nat.mod_eq_of_lt h
  have hsub : ((32 - n).toBitVec % 32).toNat = 32 - n.toNat := by
    have hs := UInt32.toNat_sub_of_le 32 n (UInt32.le_iff_toNat_le.2 (Nat.le_of_lt h))
    rw [BitVec.toNat_umod]
    change (32 - n).toNat % 32 = 32 - n.toNat
    rw [hs]
    exact Nat.mod_eq_of_lt (Nat.sub_lt (by decide) h0)
  unfold rotr
  rw [BitVec.rotateRight_def, Nat.mod_eq_of_lt h, UInt32.toBitVec_or, UInt32.toBitVec_shiftRight, UInt32.toBitVec_shiftLeft,
    BitVec.ushiftRight_eq', BitVec.shiftLeft_eq']
  exact congrArg₂ (fun i j => x.toBitVec >>> i ||| x.toBitVec <<< j) hn hsub

theorem toBitVec_shr (x : UInt32) {n : UInt32} (h : n.toNat < 32) : (x >>> n).toBitVec = x.toBitVec >>> n.toNat := by
  rw [UInt32.toBitVec_shiftRight, BitVec.ushiftRight_eq', BitVec.toNat_umod]
  exact congrArg (x.toBitVec >>> ·) (Nat.mod_eq_of_lt h)

/-- Four bytes, the highest first. -/
theorem toBitVec_bytes (a b c d : UInt8) :
    ((a.toUInt32 <<< 24) ||| (b.toUInt32 <<< 16) ||| (c.toUInt32 <<< 8) ||| d.toUInt32).toBitVec =
      a.toBitVec ++ b.toBitVec ++ c.toBitVec ++ d.toBitVec := by
  have hleft : ((a.toUInt32 <<< 24) ||| (b.toUInt32 <<< 16) ||| (c.toUInt32 <<< 8) ||| d.toUInt32).toNat =
      a.toNat <<< 24 ||| b.toNat <<< 16 ||| c.toNat <<< 8 ||| d.toNat := by
    simp only [UInt32.toNat_or, UInt8.toNat_toUInt32, toNat_shiftLeft_byte a (n := 24) (by decide),
      toNat_shiftLeft_byte b (n := 16) (by decide), toNat_shiftLeft_byte c (n := 8) (by decide)]
    rfl
  have hright : (a.toBitVec ++ b.toBitVec ++ c.toBitVec ++ d.toBitVec).toNat =
      ((a.toNat <<< 8 ||| b.toNat) <<< 8 ||| c.toNat) <<< 8 ||| d.toNat := by
    simp only [BitVec.toNat_append]
    rfl
  apply BitVec.eq_of_toNat_eq
  refine Eq.trans hleft (Eq.trans ?_ hright.symm)
  simp only [Nat.shiftLeft_or_distrib, ← Nat.shiftLeft_add]

theorem toBitVec_loadWord (block : Str) (i : Nat) : (loadWord block i).toBitVec = wordAt block i := by
  unfold loadWord wordAt
  rw [toBitVec_bytes, Nat.mul_comm i 4]

theorem toBitVec_smallSigma0 (x : UInt32) : (rotr x 7 ^^^ rotr x 18 ^^^ (x >>> 3)).toBitVec = smallSigma0 x.toBitVec := by
  simp only [UInt32.toBitVec_xor, toBitVec_rotr x (n := 7) (by decide) (by decide),
    toBitVec_rotr x (n := 18) (by decide) (by decide), toBitVec_shr x (n := 3) (by decide)]
  rfl

theorem toBitVec_smallSigma1 (x : UInt32) : (rotr x 17 ^^^ rotr x 19 ^^^ (x >>> 10)).toBitVec = smallSigma1 x.toBitVec := by
  simp only [UInt32.toBitVec_xor, toBitVec_rotr x (n := 17) (by decide) (by decide),
    toBitVec_rotr x (n := 19) (by decide) (by decide), toBitVec_shr x (n := 10) (by decide)]
  rfl

theorem toBitVec_bigSigma0 (x : UInt32) : (rotr x 2 ^^^ rotr x 13 ^^^ rotr x 22).toBitVec = bigSigma0 x.toBitVec := by
  simp only [UInt32.toBitVec_xor, toBitVec_rotr x (n := 2) (by decide) (by decide),
    toBitVec_rotr x (n := 13) (by decide) (by decide), toBitVec_rotr x (n := 22) (by decide) (by decide)]
  rfl

theorem toBitVec_bigSigma1 (x : UInt32) : (rotr x 6 ^^^ rotr x 11 ^^^ rotr x 25).toBitVec = bigSigma1 x.toBitVec := by
  simp only [UInt32.toBitVec_xor, toBitVec_rotr x (n := 6) (by decide) (by decide),
    toBitVec_rotr x (n := 11) (by decide) (by decide), toBitVec_rotr x (n := 25) (by decide) (by decide)]
  rfl

/-- A byte of a word, by shifting. -/
theorem toUInt8_shift32 (x : UInt32) {n : UInt32} (h : n.toNat < 32) :
    (x >>> n).toUInt8 = UInt8.ofBitVec (x.toBitVec.extractLsb' n.toNat 8) := by
  apply UInt8.toBitVec_inj.1
  rw [UInt32.toBitVec_toUInt8, toBitVec_shr x h]
  exact BitVec.setWidth_ushiftRight_eq_extractLsb

theorem toUInt8_shift64 (x : UInt64) {j : Nat} (h : j < 8) :
    (x >>> (8 * UInt64.ofNat j)).toUInt8 = UInt8.ofBitVec (x.toBitVec.extractLsb' (8 * j) 8) := by
  have hj : ∀ j < 8, ((8 * UInt64.ofNat j).toBitVec % 64).toNat = 8 * j := by decide
  apply UInt8.toBitVec_inj.1
  rw [UInt64.toBitVec_toUInt8, UInt64.toBitVec_shiftRight, BitVec.ushiftRight_eq', hj j h]
  exact BitVec.setWidth_ushiftRight_eq_extractLsb

theorem storeWord_eq (x : UInt32) : storeWord x = Sha256.bytes 4 x.toBitVec := by
  have h0 : x.toUInt8 = (x >>> 0).toUInt8 := by simp
  unfold storeWord
  rw [toUInt8_shift32 x (n := 24) (by decide), toUInt8_shift32 x (n := 16) (by decide), toUInt8_shift32 x (n := 8) (by decide),
    h0, toUInt8_shift32 x (n := 0) (by decide)]
  rfl

/-! ## A block -/

/-- The words filled in so far are those of the schedule. -/
theorem extendWords_run (block : Str) (n : Nat) :
    let W := (List.range' 16 n).foldl extendWords ((List.range 16).map (loadWord block))
    W.length = 16 + n ∧ ∀ t < 16 + n, (W.getD t 0).toBitVec = schedule (wordAt block) t := by
  induction n with
  | zero =>
    refine ⟨by simp, fun t ht => ?_⟩
    rw [schedule_lt ht, ← toBitVec_loadWord]
    congr 1
    simp [List.getD_eq_getElem?_getD, ht]
  | succ n ih =>
    obtain ⟨hlen, hW⟩ := ih
    have hrange : List.range' 16 (n + 1) = List.range' 16 n ++ [16 + n] := by
      rw [List.range'_concat, Nat.one_mul]
    rw [hrange, List.foldl_append]
    generalize (List.range' 16 n).foldl extendWords ((List.range 16).map (loadWord block)) = W at hlen hW
    refine ⟨by simp [extendWords, hlen, Nat.add_assoc], fun t ht => ?_⟩
    simp only [List.foldl_cons, List.foldl_nil, extendWords]
    by_cases hlt : t < 16 + n
    · rw [List.getD_append _ _ _ _ (by omega)]
      exact hW t hlt
    · obtain rfl : t = 16 + n := by omega
      have hnew : ∀ x : UInt32, (W ++ [x]).getD (16 + n) 0 = x := by
        intro x
        rw [← hlen, List.getD_append_right _ _ _ _ (Nat.le_refl _), Nat.sub_self]
        rfl
      rw [hnew, schedule_ge (by omega), UInt32.toBitVec_add, UInt32.toBitVec_add, UInt32.toBitVec_add, toBitVec_smallSigma0,
        toBitVec_smallSigma1, hW _ (by omega), hW _ (by omega), hW _ (by omega), hW _ (by omega)]
      ac_rfl

theorem toBitVec_messageWords (block : Str) {t : Nat} (ht : t < 64) :
    ((messageWords block).getD t 0).toBitVec = schedule (wordAt block) t :=
  (extendWords_run block 48).2 t ht

theorem toBitVec_K (t : Nat) : (K.getD t 0).toBitVec = Sha256.K.getD t 0 := by
  rw [← K_eq]
  exact (List.getD_map ..).symm

theorem mixWord_map (W : List UInt32) (v : Vars UInt32) (i : Nat) :
    (mixWord W v i).map UInt32.toBitVec =
      Sha256.round (Sha256.K.getD i 0) (W.getD i 0).toBitVec (v.map UInt32.toBitVec) := by
  rw [← toBitVec_K]
  simp only [mixWord, Vars.map, Sha256.round, UInt32.toBitVec_add, toBitVec_bigSigma0, toBitVec_bigSigma1]
  rfl

theorem processBlock_map (block : Str) (state : Vars UInt32) :
    (processBlock block state).map UInt32.toBitVec = compress (state.map UInt32.toBitVec) block := by
  have hrounds : ((List.range 64).foldl (mixWord (messageWords block)) state).map UInt32.toBitVec =
      (List.range 64).foldl (fun v t => Sha256.round (Sha256.K.getD t 0) (schedule (wordAt block) t) v)
        (state.map UInt32.toBitVec) := by
    refine List.foldl_rel (r := fun (v : Vars UInt32) (w : Vars Word) => v.map UInt32.toBitVec = w) rfl ?_
    rintro t ht v _ rfl
    rw [mixWord_map, toBitVec_messageWords block (List.mem_range.1 ht)]
  rw [processBlock, Vars.map_add (fun _ _ => UInt32.toBitVec_add), hrounds]
  rfl

/-! ## The message -/

/-- The full blocks are folded in, and less than a block is left. -/
theorem fullBlocks_spec (data : Str) (state : Vars UInt32) :
    ∃ full, data = full ++ (fullBlocks data state).1 ∧ full.length % 64 = 0 ∧ (fullBlocks data state).1.length < 64 ∧
      ∀ tail, (blocks (data ++ tail)).foldl compress (state.map UInt32.toBitVec) =
        (blocks ((fullBlocks data state).1 ++ tail)).foldl compress ((fullBlocks data state).2.map UInt32.toBitVec) := by
  induction data, state using fullBlocks.induct with
  | case1 data state hlen ih =>
    obtain ⟨full, hfull, hmod, hrest, hfold⟩ := ih
    have htake : (data.take 64).length = 64 := List.length_take_of_le hlen
    rw [fullBlocks, if_pos hlen]
    refine ⟨data.take 64 ++ full, ?_, ?_, hrest, fun tail => ?_⟩
    · rw [List.append_assoc, ← hfull, List.take_append_drop]
    · rw [List.length_append, htake]
      omega
    · have hblock : (processBlock data state).map UInt32.toBitVec =
          compress (state.map UInt32.toBitVec) (data.take 64) := by
        rw [processBlock_map, ← compress_append htake _ (data.drop 64), List.take_append_drop]
      rw [← hfold, hblock]
      conv_lhs => rw [← List.take_append_drop 64 data]
      rw [List.append_assoc, blocks_append htake]
      rfl
  | case2 data state hlen =>
    rw [fullBlocks, if_neg hlen]
    exact ⟨[], rfl, rfl, Nat.lt_of_not_le hlen, fun _ => rfl⟩

theorem set_middle (A Z B : Str) (k : Nat) (x : UInt8) (hk : k < Z.length) :
    (A ++ (Z ++ B)).set (A.length + k) x = A ++ (Z.set k x ++ B) := by
  rw [List.set_append_right _ _ (Nat.le_add_right _ _), Nat.add_sub_cancel_left, List.set_append_left _ _ hk]

/-- The last loop over the buffer writes eight bytes backwards. -/
theorem foldl_set {A : Str} {padLen : Nat} (hA : A.length + 8 = padLen) (B : Str) (f : Nat → UInt8) :
    (List.range 8).foldl (fun pad i => pad.set (padLen - 1 - i) (f i)) (A ++ (List.replicate 8 0 ++ B)) =
      A ++ ((List.range 8).map (fun i => f (7 - i)) ++ B) := by
  have hrun : ∀ (l : List Nat) (Z : Str), (∀ i ∈ l, i < 8) → Z.length = 8 →
      l.foldl (fun pad i => pad.set (padLen - 1 - i) (f i)) (A ++ (Z ++ B)) =
        A ++ (l.foldl (fun Z i => Z.set (7 - i) (f i)) Z ++ B) := by
    intro l
    induction l with
    | nil => intro Z _ _; rfl
    | cons i l ih =>
      intro Z hl hZ
      obtain ⟨hi, hl⟩ := List.forall_mem_cons.1 hl
      have hpos : padLen - 1 - i = A.length + (7 - i) := by omega
      rw [List.foldl_cons, List.foldl_cons, hpos, set_middle _ _ _ _ _ (by omega)]
      exact ih _ hl (by rw [List.length_set, hZ])
  exact hrun _ _ (fun i hi => List.mem_range.1 hi) (by simp)

/-- What the buffer holds: the bytes that are left, the padding and the length. -/
theorem padBuffer_eq (bytes : Str) (padLen : Nat) (bitLen : UInt64) (h : bytes.length + 9 ≤ padLen) (h128 : padLen ≤ 128) :
    padBuffer bytes padLen bitLen =
      bytes ++ 0x80 :: (List.replicate (padLen - 9 - bytes.length) 0 ++ Sha256.bytes 8 bitLen.toBitVec) ++
        List.replicate (128 - padLen) 0 := by
  have hzeros : List.replicate (128 - bytes.length) (0 : UInt8) =
      0 :: (List.replicate (padLen - 9 - bytes.length) 0 ++ (List.replicate 8 0 ++ List.replicate (128 - padLen) 0)) := by
    rw [← List.replicate_add, ← List.replicate_add, ← List.replicate_succ]
    congr 1
    omega
  have hset : (bytes ++ (List.replicate 128 (0 : UInt8)).drop bytes.length).set bytes.length 0x80 =
      (bytes ++ 0x80 :: List.replicate (padLen - 9 - bytes.length) 0) ++
        (List.replicate 8 0 ++ List.replicate (128 - padLen) 0) := by
    rw [List.drop_replicate, hzeros, List.set_append_right _ _ (Nat.le_refl _), Nat.sub_self, List.set_cons_zero,
      List.append_assoc, List.cons_append]
  have hlen : (bytes ++ 0x80 :: List.replicate (padLen - 9 - bytes.length) (0 : UInt8)).length + 8 = padLen := by
    simp only [List.length_append, List.length_cons, List.length_replicate]
    omega
  have hbytes : (List.range 8).map (fun i => (bitLen >>> (8 * UInt64.ofNat (7 - i))).toUInt8) = Sha256.bytes 8 bitLen.toBitVec := by
    refine List.map_congr_left fun i hi => ?_
    rw [List.mem_range] at hi
    have hj : 8 - 1 - i = 7 - i := rfl
    rw [hj]
    exact toUInt8_shift64 bitLen (by omega)
  unfold padBuffer
  dsimp only
  rw [hset, foldl_set hlen, hbytes]
  simp

theorem digest_of_state {state : Vars UInt32} {H : Vars Word} (h : state.map UInt32.toBitVec = H) :
    state.toList.flatMap storeWord = H.toList.flatMap (Sha256.bytes 4) := by
  have hstore : storeWord = fun x => Sha256.bytes 4 x.toBitVec := funext storeWord_eq
  rw [← h, Vars.toList_map, List.flatMap_map, hstore]

/-- One block or two, as the code hashes them. -/
theorem processBlock_tail {T : Str} {padLen : Nat} (hT : T.length = padLen) (hpad : padLen = 64 ∨ padLen = 128)
    (state : Vars UInt32) :
    (let buffer := T ++ List.replicate (128 - padLen) 0
      let state := processBlock buffer state
      if padLen = 128 then processBlock (buffer.drop 64) state else state).map UInt32.toBitVec =
      (blocks T).foldl compress (state.map UInt32.toBitVec) := by
  rcases hpad with rfl | rfl
  · have hone : blocks T = [T] := by
      rw [← List.append_nil T, blocks_append hT, List.append_nil]
      rfl
    rw [if_neg (by decide), processBlock_map, compress_append hT, hone]
    rfl
  · have htake : (T.take 64).length = 64 := by
      rw [List.length_take, hT]
      rfl
    have hdrop : (T.drop 64).length = 64 := by rw [List.length_drop, hT]
    have htwo : blocks T = [T.take 64, T.drop 64] := by
      rw [← List.take_append_drop 64 T, blocks_append htake, ← List.append_nil (T.drop 64), blocks_append hdrop,
        List.append_nil, List.take_append_drop]
      rfl
    have hfirst : ∀ H, compress H T = compress H (T.take 64) := by
      intro H
      rw [← compress_append htake H (T.drop 64), List.take_append_drop]
    have hbuffer : T ++ List.replicate (128 - 128) 0 = T := List.append_nil T
    simp only [hbuffer, if_true]
    rw [processBlock_map, processBlock_map, hfirst, htwo]
    rfl

theorem sha256_eq_digest (data : Str) : sha256 data = digest data := by
  obtain ⟨full, hdata, hfull, hrest, hfold⟩ := fullBlocks_spec data initialState
  rw [initialState_eq] at hfold
  unfold sha256
  generalize fullBlocks data initialState = run at hdata hrest hfold
  obtain ⟨rest, state⟩ := run
  dsimp only at hdata hrest hfold ⊢
  generalize hpad : (if rest.length < 56 then 64 else 128) = padLen
  have hcases : rest.length + 9 ≤ padLen ∧ padLen ≤ 128 ∧ (padLen = 64 ∨ padLen = 128) := by
    rw [← hpad]
    split <;> omega
  obtain ⟨hroom, h128, hlens⟩ := hcases
  have hbits : (UInt64.ofNat data.length * 8).toBitVec = BitVec.ofNat 64 (8 * data.length) := by
    rw [UInt64.toBitVec_mul, Nat.mul_comm 8, BitVec.ofNat_mul]
    rfl
  -- The code pads what is left as the standard pads the message.
  have hzeros : (119 - data.length % 64) % 64 = padLen - 9 - rest.length := by
    have hlen := congrArg List.length hdata
    rw [List.length_append] at hlen
    rw [← hpad]
    split <;> omega
  rw [digest, Sha256.pad, hfold, hzeros, padBuffer_eq rest padLen _ hroom h128, hbits]
  apply digest_of_state
  refine processBlock_tail ?_ hlens state
  simp only [List.length_append, List.length_cons, List.length_replicate, Sha256.length_bytes]
  omega

/-! ## Hexadecimal -/

theorem toHex_eq (data : Str) : toHex data = data.flatMap fun b => [hexByte (b.toNat / 16), hexByte (b.toNat % 16)] := by
  have hdigit : ∀ d < 16, hex.getD d 0 = hexByte d := by decide
  unfold toHex
  congr 1
  funext b
  have hb : b.toNat < 256 := b.toNat_lt
  have hhigh : (b >>> 4).toNat = b.toNat / 16 := by
    rw [UInt8.toNat_shiftRight]
    exact Nat.shiftRight_eq_div_pow b.toNat 4
  have hlow : (b &&& 0xf).toNat = b.toNat % 16 := by
    rw [UInt8.toNat_and]
    exact Nat.and_two_pow_sub_one_eq_mod b.toNat 4
  rw [hhigh, hlow, hdigit _ (by omega), hdigit _ (by omega)]

/-- The hash of every message is its SHA-256, and the salted hash is that of the
salt and the token in lowercase hex. A message has less than `2 ^ 61` bytes in
the standard; the two agree on longer ones as well. -/
theorem sha256_correct (data salt token : Str) :
    sha256 data = digest data ∧ (sha256 data).length = 32 ∧
    sha256SaltedHex salt token =
      (digest (salt ++ token)).flatMap fun b => [hexByte (b.toNat / 16), hexByte (b.toNat % 16)] := by
  refine ⟨sha256_eq_digest data, ?_, ?_⟩
  · rw [sha256_eq_digest]
    exact length_digest data
  · rw [sha256SaltedHex, sha256Hex, toHex_eq, sha256_eq_digest]

end McpBridge.Core.Crypto
