import McpBridge.Grants.Sudoers
/-!
# The setuid helper's gate (`priv/main.c`)

`mcp_bridge-priv install-grant` copies a file the daemon wrote into
`/etc/sudoers.d`. Before that it checks the file with `specWellFormed`, which
is all that stands between a compromised daemon and the sudoers directory:
`visudo -cf` accepts any line sudo can parse.
-/

open McpBridge.Lib

namespace McpBridge.Grants

/-- The helper's shape check on the bytes it read. -/
def specWellFormed (buf : Str) : Bool :=
  if buf.length = 0 ∨ 4096 < buf.length then false
  else if buf.getLast? ≠ some (ch '\n') then false
  else if buf.dropLast.any (fun c => !isPrint c || c = ch '\n') then false
  else if buf.length < prefixA.length + 8 then false
  else if !prefixA.isPrefixOf buf then false
  else if ((buf.drop prefixA.length).take 8).any (fun c => !isShortidChar c) then false
  else
    let tail := buf.drop (prefixA.length + 8)
    if pathMid.length ≤ tail.length ∧ pathMid.isPrefixOf tail then true
    else if buf.length = prefixA.length + 8 + wildcardTail.length ∧ wildcardTail.isPrefixOf tail then true
    else false

/-- A list that ends in `x` and starts with `p`, which does not end in `x`. -/
theorem eq_prefix_append_last {s p : Str} {x : UInt8} (hp : p <+: s) (hl : s.getLast? = some x)
    (hx : p.getLast? ≠ some x) : ∃ r, s = p ++ r ++ [x] := by
  obtain ⟨r, rfl⟩ := hp
  rcases List.eq_nil_or_concat r with rfl | ⟨r, y, rfl⟩
  · rw [List.append_nil] at hl
    exact absurd hl hx
  · simp only [List.concat_eq_append] at hl ⊢
    rw [← List.append_assoc, List.getLast?_append] at hl
    simp only [List.getLast?_singleton, Option.some_or, Option.some.injEq] at hl
    exact ⟨r, by rw [hl, List.append_assoc]⟩

/-- What the checks say: a last newline, printable characters before it, and
the prefix, an id and one of the two tails. -/
theorem specWellFormed_checks {buf : Str} (h : specWellFormed buf = true) :
    buf.getLast? = some (ch '\n') ∧ (∀ c ∈ buf.dropLast, isPrint c = true) ∧
      ∃ id tail, buf = prefixA ++ id ++ tail ∧ validShortid id = true ∧ (pathMid <+: tail ∨ tail = wildcardTail) := by
  simp only [specWellFormed] at h
  split at h
  · cases h
  split at h
  · cases h
  next hlast =>
  split at h
  · cases h
  next hprint =>
  split at h
  · cases h
  next hlen =>
  split at h
  · cases h
  next hpre =>
  split at h
  · cases h
  next hid =>
  simp only [Bool.not_eq_eq_eq_not, Bool.not_true, Bool.not_eq_false, List.isPrefixOf_iff_prefix] at hpre
  obtain ⟨r, rfl⟩ := hpre
  rw [List.drop_left] at hid
  rw [← List.drop_drop, List.drop_left] at h
  simp only [List.length_append] at hlen
  refine ⟨not_ne_iff.1 hlast, fun c hc => ?_, r.take 8, r.drop 8, ?_, ?_, ?_⟩
  · by_contra hn
    exact hprint (List.any_eq_true.2 ⟨c, hc, by simpa using Or.inl hn⟩)
  · rw [List.append_assoc, List.take_append_drop]
  · simp only [validShortid, List.length_take, Bool.and_eq_true, decide_eq_true_eq, List.all_eq_true]
    refine ⟨by omega, fun c hc => ?_⟩
    by_contra hn
    exact hid (List.any_eq_true.2 ⟨c, hc, by simpa using hn⟩)
  split at h
  · next hpm => exact .inl (List.isPrefixOf_iff_prefix.1 hpm.2)
  split at h
  · next hw =>
    -- The length of the line leaves nothing after the wildcard tail.
    obtain ⟨t, ht⟩ := List.isPrefixOf_iff_prefix.1 hw.2
    have hlen' := congrArg List.length ht
    simp only [List.length_append, List.length_drop] at hlen' hw
    have ht0 : t = [] := List.length_eq_zero_iff.1 (by omega)
    exact .inr (by rw [← ht, ht0, List.append_nil])
  · cases h

/-- What the gate accepts: one of the two forms, on one line of printable characters. -/
theorem specWellFormed_shape {buf : Str} (h : specWellFormed buf = true) :
    ∃ id, validShortid id = true ∧
      ((∃ rest, rest.all isPrint = true ∧ buf = prefixA ++ id ++ pathMid ++ rest ++ lit "\n") ∨
        buf = prefixA ++ id ++ wildcardTail) := by
  obtain ⟨hlast, hprint, id, tail, rfl, hid, ⟨t, rfl⟩ | rfl⟩ := specWellFormed_checks h
  swap
  · exact ⟨id, hid, .inr rfl⟩
  have hp : prefixA ++ id ++ pathMid <+: prefixA ++ id ++ (pathMid ++ t) := ⟨t, by rw [List.append_assoc _ pathMid]⟩
  have hslash : pathMid.getLast? = some (ch '/') := by decide
  obtain ⟨rest, hrest⟩ := eq_prefix_append_last hp hlast (by rw [List.getLast?_append, hslash, Option.some_or]; decide)
  refine ⟨id, hid, .inl ⟨rest, ?_, hrest⟩⟩
  rw [List.all_eq_true]
  intro c hc
  apply hprint
  rw [hrest, List.dropLast_concat]
  exact List.mem_append_right _ hc

/-! ## What the gate confines -/

/-- A command given by an absolute path: `/` after spaces. -/
def IsPathCommand (t : Str) : Prop := (t.dropWhile (· = ch ' ')).head? = some (ch '/')

/-- The unrestricted form of an install-time or `full_admin` grant. -/
def IsFullAdminSpec (buf : Str) : Prop := ∃ id, validShortid id = true ∧ buf = prefixA ++ id ++ wildcardTail

/-- A spec grants everything in its one unrestricted form, or else only
commands given by absolute paths. -/
def Confined (buf : Str) : Prop := IsFullAdminSpec buf ∨ ∃ els, commandList buf = some els ∧ ∀ t ∈ els, IsPathCommand t

/-- After every comma that no backslash precedes comes a `/`, after spaces. -/
def SlashAfterCommas (t : Str) : Prop :=
  ∀ pre post, t = pre ++ ch ',' :: post → ¬ EscapedAfter (ch '\\') false pre → IsPathCommand post

/-- Whether an element is a path command is decided before the next comma. -/
theorem isPathCommand_append (t r : Str) : IsPathCommand t ↔ IsPathCommand (t ++ ch ',' :: r) := by
  have hc : (decide (ch ',' = ch ' ')) = false := by decide
  have hs : ch ',' ≠ ch '/' := by decide
  unfold IsPathCommand
  induction t with
  | nil => simp [hc, hs]
  | cons c t ih =>
    simp only [List.cons_append, List.dropWhile_cons]
    split
    · exact ih
    · simp

/-- A spec the gate accepts is confined if and only if it is the unrestricted
form, or a path follows each of its separating commas. -/
theorem accepted_confined_iff (buf : Str) (h : specWellFormed buf = true) :
    Confined buf ↔ IsFullAdminSpec buf ∨ ∀ t, commandText buf = some t → SlashAfterCommas t := by
  obtain ⟨id, hid, ⟨rest, -, hbuf⟩ | hbuf⟩ := specWellFormed_shape h
  · have e : pathMid ++ rest = lit " ALL=(root) " ++ lit "NOPASSWD: " ++ (ch '/' :: rest) := by
      rw [show pathMid = lit " ALL=(root) " ++ lit "NOPASSWD: " ++ [ch '/'] by decide, List.append_assoc]; rfl
    have ht : commandText buf = some (ch '/' :: rest) := by
      rw [hbuf, List.append_assoc (prefixA ++ id), e, ← List.append_assoc, ← List.append_assoc]
      exact commandText_append (no_marker_before hid)
    have hslash : IsPathCommand (ch '/' :: rest) := by
      unfold IsPathCommand
      rw [List.dropWhile_cons_of_neg (by decide)]
      rfl
    have hsplit := @forall_splitUnescaped (ch ',') (ch '\\') _ (by decide) isPathCommand_append (ch '/' :: rest)
    simp only [Confined, commandList, ht, Option.map_some, Option.some.injEq, exists_eq_left', forall_eq']
    rw [hsplit]
    simp only [hslash, true_and, SlashAfterCommas]
  · have hf : IsFullAdminSpec buf := ⟨id, hid, hbuf⟩
    simp [Confined, hf]

theorem single_path_confined : Confined (lit "mcp_user_abcdefgh ALL=(root) NOPASSWD: /bin/ls\n") :=
  (accepted_confined_iff _ (by decide)).2 (.inr fun t ht => by
    have hb : t = lit "/bin/ls" := by
      rw [show commandText (lit "mcp_user_abcdefgh ALL=(root) NOPASSWD: /bin/ls\n") = some (lit "/bin/ls") by decide] at ht
      exact (Option.some.inj ht).symm
    subst hb
    intro pre post heq _
    exact absurd (heq ▸ (List.mem_append_right pre List.mem_cons_self) : ch ',' ∈ lit "/bin/ls") (by decide))

/-- The gate lets the reserved command `ALL` through behind a comma. -/
theorem gate_accepts_all_behind_comma :
    specWellFormed (lit "mcp_user_abcdefgh ALL=(root) NOPASSWD: /bin/ls, ALL\n") = true ∧
    commandList (lit "mcp_user_abcdefgh ALL=(root) NOPASSWD: /bin/ls, ALL\n") = some [lit "/bin/ls", lit " ALL"] ∧
    ¬ Confined (lit "mcp_user_abcdefgh ALL=(root) NOPASSWD: /bin/ls, ALL\n") := by
  have hl : commandList (lit "mcp_user_abcdefgh ALL=(root) NOPASSWD: /bin/ls, ALL\n") =
      some [lit "/bin/ls", lit " ALL"] := by decide
  refine ⟨by decide, hl, ?_⟩
  rintro (⟨id, hid, heq⟩ | ⟨els, hels, hall⟩)
  · have hlen := congrArg List.length heq
    simp only [validShortid, Bool.and_eq_true, decide_eq_true_eq] at hid
    simp only [List.length_append, hid.1] at hlen
    exact absurd hlen (by decide)
  · rw [hl] at hels
    cases hels
    exact absurd (hall (lit " ALL") (by simp)) (by unfold IsPathCommand; decide)

end McpBridge.Grants
