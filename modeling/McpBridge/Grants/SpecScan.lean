import McpBridge.Grants.Helper
import McpBridge.Lib.Buffer
/-!
# One language for the daemon and the helper

The daemon checks a spec with `spec_is_well_formed` (`core/grant_template.cpp`)
before it hands it to the helper, which checks it again with `spec_well_formed`
(`priv/main.c`). Here both are scanners over a buffer, byte by byte and in the
order of the source, in which a read past the end is an outcome of its own.
Neither has that outcome, and both accept `SpecLanguage`.
-/

open McpBridge.Lib

namespace McpBridge.Grants

/-- The specs both gates are for: `mcp_user_<shortid>`, and either a command by
its absolute path or the unrestricted form, on one line of at most 4 KiB. -/
def SpecLanguage (s : Str) : Prop :=
  s.length ≤ 4096 ∧ ∃ id : Str, id.length = 8 ∧
    (∀ c ∈ id, (ch 'a' ≤ c ∧ c ≤ ch 'z') ∨ (ch '2' ≤ c ∧ c ≤ ch '7')) ∧
    ((∃ rest : Str, (∀ c ∈ rest, 0x20 ≤ c ∧ c ≤ 0x7e) ∧
        s = lit "mcp_user_" ++ id ++ lit " ALL=(root) NOPASSWD: /" ++ rest ++ lit "\n") ∨
      s = lit "mcp_user_" ++ id ++ lit " ALL=(ALL) NOPASSWD: ALL\n")

namespace Scan

open Buffer

/-- `spec_is_well_formed(spec)` -/
def specIsWellFormed (spec : Str) : Option Bool := do
  let size := spec.length
  if size = 0 ∨ 4096 < size then return false
  if (← byteAt spec (size - 1)) ≠ ch '\n' then return false
  if find spec (ch '\n') ≠ sizeSub size 1 then return false
  if !(← forEach (fun i => (byteAt spec i).map isPrint) 0 (size - 1)) then return false
  if !(← compareEq spec 0 prefixA.length prefixA) then return false
  if size < prefixA.length + 8 then return false
  if !(← forEach (fun i => (byteAt spec (prefixA.length + i)).map isShortidChar) 0 8) then return false
  let afterId := prefixA.length + 8
  if pathMid.length ≤ sizeSub size afterId then
    if ← compareEq spec afterId pathMid.length pathMid then return true
  if size = afterId + wildcardTail.length then
    if ← compareEq spec afterId wildcardTail.length wildcardTail then return true
  return false

/-- `spec_well_formed(buf, len)` -/
def specWellFormed (buf : Str) (len : Nat) : Option Bool := do
  if len = 0 ∨ 4096 < len then return false
  if (← byteAt buf (len - 1)) ≠ ch '\n' then return false
  if !(← forEach (fun i => (byteAt buf i).map fun c => isPrint c && c ≠ ch '\n') 0 (len - 1)) then return false
  if len < prefixA.length + 8 then return false
  if !(← memcmpEq buf 0 prefixA) then return false
  if !(← forEach (fun i => (byteAt buf (prefixA.length + i)).map isShortidChar) 0 8) then return false
  let afterId := prefixA.length + 8
  if pathMid.length ≤ sizeSub len afterId then
    if ← memcmpEq buf afterId pathMid then return true
  if len = afterId + wildcardTail.length then
    if ← memcmpEq buf afterId wildcardTail then return true
  return false

end Scan

/-! ## No read past the end -/

section
open Buffer

/-- The two tails, compared only where they fit. -/
theorem scan_tails {buf : Str} (hmin : prefixA.length + 8 ≤ buf.length) (hmax : buf.length ≤ 4096) (cmp : Str → Option Bool)
    (hcmp : ∀ s, prefixA.length + 8 + s.length ≤ buf.length → cmp s = some (s.isPrefixOf (buf.drop (prefixA.length + 8)))) :
    (if pathMid.length ≤ sizeSub buf.length (prefixA.length + 8) then
      (cmp pathMid).bind fun eq =>
        if eq = true then some true
        else if buf.length = prefixA.length + 8 + wildcardTail.length then
          (cmp wildcardTail).bind fun eq => if eq = true then some true else some false
        else some false
    else if buf.length = prefixA.length + 8 + wildcardTail.length then
      (cmp wildcardTail).bind fun eq => if eq = true then some true else some false
    else some false) =
    some (if pathMid.length ≤ (buf.drop (prefixA.length + 8)).length ∧
        pathMid.isPrefixOf (buf.drop (prefixA.length + 8)) = true then true
      else if buf.length = prefixA.length + 8 + wildcardTail.length ∧
        wildcardTail.isPrefixOf (buf.drop (prefixA.length + 8)) = true then true
      else false) := by
  have hwild : (if buf.length = prefixA.length + 8 + wildcardTail.length then
        (cmp wildcardTail).bind fun eq => if eq = true then some true else some false
      else some false) =
      some (if buf.length = prefixA.length + 8 + wildcardTail.length ∧
        wildcardTail.isPrefixOf (buf.drop (prefixA.length + 8)) = true then true else false) := by
    by_cases hw : buf.length = prefixA.length + 8 + wildcardTail.length
    · rw [if_pos hw, hcmp wildcardTail hw.ge, Option.bind_some]
      simp only [hw, true_and]
      split
      · rfl
      · rfl
    · simp only [hw, false_and, if_false]
  have hlen : sizeSub buf.length (prefixA.length + 8) = (buf.drop (prefixA.length + 8)).length := by
    rw [sizeSub_of_le hmin (by omega), List.length_drop]
  rw [hwild, hlen]
  by_cases hp : pathMid.length ≤ (buf.drop (prefixA.length + 8)).length
  · have hfits : prefixA.length + 8 + pathMid.length ≤ buf.length := by
      rw [List.length_drop] at hp
      omega
    rw [if_pos hp, hcmp pathMid hfits, Option.bind_some]
    simp only [hp, true_and]
    split
    · rfl
    · rfl
  · simp only [hp, false_and, if_false]

/-- A check that returns false early, on both sides. -/
theorem scan_guard {c : Prop} [Decidable c] {x : Option Bool} {y : Bool} (h : ¬ c → x = some y) :
    (if c then some false else x) = some (if c then false else y) := by
  by_cases hc : c
  · rw [if_pos hc, if_pos hc]
  · rw [if_neg hc, if_neg hc, h hc]

theorem scan_specWellFormed (buf : Str) : Scan.specWellFormed buf buf.length = some (specWellFormed buf) := by
  unfold Scan.specWellFormed specWellFormed
  simp only [Option.pure_def, Option.bind_eq_bind]
  refine scan_guard fun hsize => ?_
  obtain ⟨x, hbyte, hlast⟩ := byteAt_last buf (by omega)
  simp only [hbyte, Option.bind_some, hlast, ne_eq, Option.some.injEq]
  refine scan_guard fun hnl => ?_
  rw [forEach_bytes _ (Nat.sub_le _ _), ← List.dropLast_eq_take, Option.bind_some, List.not_all_eq_any_not]
  simp only [Bool.not_and, ← decide_not, not_not]
  refine scan_guard fun hprint => ?_
  refine scan_guard fun hmin => ?_
  rw [memcmpEq_eq (by omega), Option.bind_some, List.drop_zero]
  refine scan_guard fun hprefix => ?_
  rw [forEach_byteAt _ _ _ _ _ (by omega), Option.bind_some, List.not_all_eq_any_not, Nat.add_zero]
  refine scan_guard fun hid => ?_
  exact scan_tails (by omega) (by omega) (memcmpEq buf (prefixA.length + 8)) fun s hs => memcmpEq_eq hs

theorem scan_specIsWellFormed (spec : Str) : Scan.specIsWellFormed spec = some (specIsWellFormed spec) := by
  unfold Scan.specIsWellFormed specIsWellFormed
  simp only [Option.pure_def, Option.bind_eq_bind, ← List.length_eq_zero_iff (l := spec)]
  refine scan_guard fun hsize => ?_
  obtain ⟨x, hbyte, hlast⟩ := byteAt_last spec (by omega)
  simp only [hbyte, Option.bind_some, hlast, ne_eq, Option.some.injEq]
  refine scan_guard fun hnl => ?_
  have hmem : ch '\n' ∈ spec := by
    apply List.mem_of_getLast?
    rw [hlast, not_not.1 hnl]
  simp only [find, if_pos hmem, sizeSub_of_le (by omega : 1 ≤ spec.length) (by omega)]
  refine scan_guard fun hfind => ?_
  rw [forEach_bytes _ (Nat.sub_le _ _), ← List.dropLast_eq_take, Option.bind_some, List.not_all_eq_any_not]
  refine scan_guard fun hprint => ?_
  rw [compareEq_eq _ (Nat.zero_le _), Option.bind_some, List.drop_zero]
  refine scan_guard fun hprefix => ?_
  refine scan_guard fun hmin => ?_
  rw [forEach_byteAt _ _ _ _ _ (by omega), Option.bind_some, List.not_all_eq_any_not, Nat.add_zero]
  refine scan_guard fun hid => ?_
  have htail : (spec.drop (prefixA.length + 8)).length = wildcardTail.length ↔
      spec.length = prefixA.length + 8 + wildcardTail.length := by
    rw [List.length_drop]
    omega
  simp only [htail]
  exact scan_tails (by omega) (by omega) (fun s => compareEq spec (prefixA.length + 8) s.length s)
    fun s hs => compareEq_eq s (by omega)

end

/-! ## The language -/

/-- A newline is not printable, so the daemon's search for one adds nothing to
the helper's checks. -/
theorem specIsWellFormed_eq (s : Str) : specIsWellFormed s = specWellFormed s := by
  unfold specIsWellFormed specWellFormed
  simp only [← List.length_eq_zero_iff (l := s)]
  split
  · rfl
  next hsize =>
  split
  · rfl
  next hlast =>
  have hlast' : s.getLast? = some (ch '\n') := not_ne_iff.1 hlast
  have hnl : ∀ c : UInt8, (!isPrint c || decide (c = ch '\n')) = !isPrint c := by
    intro c
    by_cases hc : c = ch '\n'
    · subst hc; decide
    · simp [hc]
  simp only [hnl]
  by_cases hprint : s.dropLast.any (fun c => !isPrint c) = true
  · simp only [hprint, if_true]
    split
    · rfl
    · rfl
  · have hindex : s.idxOf (ch '\n') = s.length - 1 := by
      obtain ⟨t, rfl⟩ := List.getLast?_eq_some_iff.1 hlast'
      rw [List.dropLast_concat] at hprint
      have hnot : ch '\n' ∉ t := fun hm => hprint (List.any_eq_true.2 ⟨_, hm, by decide⟩)
      rw [List.idxOf_append_of_notMem hnot]
      simp
    simp only [hindex, ne_eq, not_true_eq_false, if_false, hprint]
    by_cases hmin : s.length < prefixA.length + 8
    · simp only [hmin, if_true, Bool.false_eq_true, ite_self]
    · have htail : (s.drop (prefixA.length + 8)).length = wildcardTail.length ↔
          s.length = prefixA.length + 8 + wildcardTail.length := by
        rw [List.length_drop]
        omega
      simp only [hmin, if_false, htail]

theorem isPrint_of_isShortidChar {c : UInt8} (h : isShortidChar c = true) : isPrint c = true := by
  have ha : (ch 'a').toNat = 97 := rfl
  have hz : (ch 'z').toNat = 122 := rfl
  have h2 : (ch '2').toNat = 50 := rfl
  have h7 : (ch '7').toNat = 55 := rfl
  have hlo : (0x20 : UInt8).toNat = 32 := rfl
  have hhi : (0x7e : UInt8).toNat = 126 := rfl
  simp only [isShortidChar, isLower, isPrint, Bool.or_eq_true, Bool.and_eq_true, decide_eq_true_eq,
    UInt8.le_iff_toNat_le] at h ⊢
  omega

/-- A line of the right parts passes every check of the helper. -/
theorem specWellFormed_of_parts {id tail body : Str} (hid : validShortid id = true) (htail : tail = body ++ [ch '\n'])
    (hprint : ∀ c ∈ body, isPrint c = true) (hform : pathMid <+: tail ∨ tail = wildcardTail)
    (hmax : (prefixA ++ id ++ tail).length ≤ 4096) : specWellFormed (prefixA ++ id ++ tail) = true := by
  simp only [validShortid, Bool.and_eq_true, decide_eq_true_eq, List.all_eq_true] at hid
  obtain ⟨hid8, hchars⟩ := hid
  have hlen : (prefixA ++ id ++ tail).length = prefixA.length + 8 + tail.length := by
    simp only [List.length_append, hid8]
  have hdrop : (prefixA ++ id ++ tail).drop (prefixA.length + 8) = tail := by
    rw [List.drop_append_of_le_length (by simp [hid8]), ← hid8, ← List.length_append, List.drop_length, List.nil_append]
  have hpos : 0 < prefixA.length := by decide
  have hsize : ¬ ((prefixA ++ id ++ tail).length = 0 ∨ 4096 < (prefixA ++ id ++ tail).length) := by omega
  have hlast : ¬ (prefixA ++ id ++ tail).getLast? ≠ some (ch '\n') := by
    rw [htail, ← List.append_assoc, List.getLast?_concat]
    exact not_not.2 rfl
  have hline : ¬ ((prefixA ++ id ++ tail).dropLast.any fun c => !isPrint c || decide (c = ch '\n')) = true := by
    rw [htail, ← List.append_assoc, List.dropLast_concat, List.any_eq_true]
    rintro ⟨c, hc, hbad⟩
    have hp : isPrint c = true := by
      simp only [List.mem_append] at hc
      rcases hc with (hc | hc) | hc
      · exact List.all_eq_true.1 (by decide : prefixA.all isPrint = true) c hc
      · exact isPrint_of_isShortidChar (hchars c hc)
      · exact hprint c hc
    rw [hp, Bool.not_true, Bool.false_or, decide_eq_true_eq] at hbad
    subst hbad
    exact absurd hp (by decide)
  have hmin : ¬ (prefixA ++ id ++ tail).length < prefixA.length + 8 := by omega
  have hprefix : ¬ (!prefixA.isPrefixOf (prefixA ++ id ++ tail)) = true := by
    rw [List.append_assoc]
    simp
  have hidpart : ¬ ((((prefixA ++ id ++ tail).drop prefixA.length).take 8).any fun c => !isShortidChar c) = true := by
    rw [List.append_assoc, List.drop_left, ← hid8, List.take_left, List.any_eq_true]
    rintro ⟨c, hc, hbad⟩
    rw [hchars c hc] at hbad
    cases hbad
  unfold specWellFormed
  rw [if_neg hsize, if_neg hlast, if_neg hline, if_neg hmin, if_neg hprefix, if_neg hidpart, hdrop, hlen]
  rcases hform with hpath | rfl
  · exact if_pos ⟨hpath.length_le, List.isPrefixOf_iff_prefix.2 hpath⟩
  · simp

theorem specWellFormed_of_language {s : Str} (h : SpecLanguage s) : specWellFormed s = true := by
  obtain ⟨hmax, id, hid, hchars, hform⟩ := h
  have hvalid : validShortid id = true := by
    simpa [validShortid, hid, isShortidChar, isLower] using hchars
  rcases hform with ⟨rest, hrest, rfl⟩ | rfl
  · have hassoc : lit "mcp_user_" ++ id ++ lit " ALL=(root) NOPASSWD: /" ++ rest ++ lit "\n" =
        prefixA ++ id ++ (pathMid ++ rest ++ lit "\n") := by
      simp only [prefixA, pathMid, List.append_assoc]
    rw [hassoc] at hmax ⊢
    refine specWellFormed_of_parts hvalid rfl ?_ (.inl ⟨rest ++ lit "\n", by rw [List.append_assoc]⟩) hmax
    intro c hc
    rcases List.mem_append.1 hc with hc | hc
    · exact List.all_eq_true.1 (by decide : pathMid.all isPrint = true) c hc
    · simpa [isPrint] using hrest c hc
  · have hbody : wildcardTail = lit " ALL=(ALL) NOPASSWD: ALL" ++ [ch '\n'] := rfl
    refine specWellFormed_of_parts hvalid hbody ?_ (.inr rfl) hmax
    intro c hc
    exact List.all_eq_true.1 (by decide : (lit " ALL=(ALL) NOPASSWD: ALL").all isPrint = true) c hc

theorem specWellFormed_iff (s : Str) : specWellFormed s = true ↔ SpecLanguage s := by
  refine ⟨fun h => ?_, specWellFormed_of_language⟩
  have hmax : s.length ≤ 4096 := by
    by_contra hn
    unfold specWellFormed at h
    rw [if_pos (by omega)] at h
    cases h
  obtain ⟨id, hid, hform⟩ := specWellFormed_shape h
  simp only [validShortid, Bool.and_eq_true, decide_eq_true_eq, List.all_eq_true, isShortidChar, isLower,
    Bool.or_eq_true] at hid
  refine ⟨hmax, id, hid.1, hid.2, ?_⟩
  rcases hform with ⟨rest, hrest, rfl⟩ | rfl
  · refine .inl ⟨rest, ?_, rfl⟩
    simpa [isPrint] using hrest
  · exact .inr rfl

/-- The daemon's check and the helper's check accept the same specs, and neither
reads past the end of one. -/
theorem spec_checks_agree (s : Str) :
    (specIsWellFormed s = true ↔ SpecLanguage s) ∧ (specWellFormed s = true ↔ SpecLanguage s) ∧
    Scan.specIsWellFormed s = some (specIsWellFormed s) ∧ Scan.specWellFormed s s.length = some (specWellFormed s) := by
  refine ⟨?_, specWellFormed_iff s, scan_specIsWellFormed s, scan_specWellFormed s⟩
  rw [specIsWellFormed_eq]
  exact specWellFormed_iff s

end McpBridge.Grants
