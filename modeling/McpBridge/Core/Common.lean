import McpBridge.Lib.JsonText
/-!
# What the components share

The identity a request runs under (`core/request_context.hpp`), the random
16-hex ids of grants and cron jobs, the ids and tokens of users
(`core/shortid.cpp`), and the outcomes of replacing a file. A
replacement is a list of system calls: the outcome says which of them succeed,
and the function returns the content of the file afterwards, on success and
when it throws.
-/

open McpBridge.Lib

namespace McpBridge.Core

structure RequestContext where
  userId : Str := []
  osUsername : Str := []
  isAdmin : Bool := false
  sessionId : Str := []
  bearerHash : Str := []
  clientIp : Str := []
deriving DecidableEq

/-! ## Random ids -/

/-- Two hex digits per byte. -/
def hexId (buf : Vector UInt8 8) : Str :=
  buf.toList.flatMap fun b => [hexByte (b.toNat / 16), hexByte (b.toNat % 16)]

/-- 16 lowercase hex digits. -/
def isHexId (s : Str) : Bool := s.length = 16 && s.all isHexDigit

theorem hexByte_isHexDigit : ∀ d < 16, isHexDigit (hexByte d) = true := by decide

theorem isHexId_hexId (buf : Vector UInt8 8) : isHexId (hexId buf) = true := by
  have hlen : ∀ l : List UInt8, (l.flatMap fun b => [hexByte (b.toNat / 16), hexByte (b.toNat % 16)]).length =
      2 * l.length := by
    intro l
    simp [List.length_flatMap, Nat.mul_comm]
  simp only [isHexId, hexId, hlen, Vector.length_toList, Nat.reduceMul, decide_true, Bool.true_and, List.all_eq_true,
    List.mem_flatMap]
  rintro c ⟨b, -, hc⟩
  have hb : b.toNat < 256 := b.toNat_lt
  simp only [List.mem_cons, List.not_mem_nil, or_false] at hc
  rcases hc with rfl | rfl
  · exact hexByte_isHexDigit _ (by omega)
  · exact hexByte_isHexDigit _ (by omega)

/-- Eight characters of five bits each. -/
def makeShortid (raw : Vector UInt8 5) : Str :=
  let alphabet := lit "abcdefghijklmnopqrstuvwxyz234567"
  let pick : UInt8 → UInt8 := fun i => alphabet.getD i.toNat 0
  [pick (raw[0] >>> 3), pick (((raw[0] &&& 0x07) <<< 2) ||| (raw[1] >>> 6)), pick ((raw[1] >>> 1) &&& 0x1f),
    pick (((raw[1] &&& 0x01) <<< 4) ||| (raw[2] >>> 4)), pick (((raw[2] &&& 0x0f) <<< 1) ||| (raw[3] >>> 7)),
    pick ((raw[3] >>> 2) &&& 0x1f), pick (((raw[3] &&& 0x03) <<< 3) ||| (raw[4] >>> 5)), pick (raw[4] &&& 0x1f)]

def makeToken (raw : Vector UInt8 32) : Str :=
  raw.toList.flatMap fun b => [hexByte (b.toNat / 16), hexByte (b.toNat % 16)]

theorem makeToken_ne_nil (raw : Vector UInt8 32) : makeToken raw ≠ [] := by
  intro h
  have hlen := congrArg List.length h
  simp [makeToken, List.length_flatMap] at hlen

/-! ## Replacing a file -/

/-- Which calls of a POSIX replacement succeed, and the error text of the one that fails. -/
structure ReplaceOutcome where
  opened : Bool := true
  written : Bool := true
  synced : Bool := true
  renamed : Bool := true
  strerror : Str := []

/-- The temporary file next to `path`. -/
def tmpOf (pid : Nat) (path : Str) : Str := path ++ lit ".tmp." ++ writeNat pid

end McpBridge.Core
