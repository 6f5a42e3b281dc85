import McpBridge.PrivWin.Operations
/-!
# Lines on the pipe (`platform/windows/priv_client.cpp`, `priv_win/main.cpp`)

The daemon sends its request as one line of JSON and reads one line back. Both
ends read byte by byte up to a limit, and both refuse to send what is too long;
the four checks are written separately. `Pipe` is what is in flight, in the
pieces it was written in.

A reply the service sends always arrives. A request of exactly
`kMaxRequestBytes` bytes is sent and never received: the client counts the body
without its newline, and the service stops reading before it.
-/

open McpBridge.Lib

namespace McpBridge.PrivWin

def kMaxRequestBytes : Nat := 64 * 1024

def kMaxResponseBytes : Nat := 4 * 1024 * 1024

/-- What was written and not yet read, one string for each write. -/
abbrev Pipe := List Str

/-! ## Reading -/

/-- `ReadFile` for one byte. -/
def Pipe.readByte : Pipe → Option (UInt8 × Pipe)
  | [] => none
  | [] :: pipe => readByte pipe
  | (c :: s) :: pipe => some (c, s :: pipe)

/-- The loop of `read_line`, with room for so many bytes. -/
def readUpTo : Nat → Pipe → Str → Bool × Str
  | 0, _, out => (false, out)
  | room + 1, pipe, out =>
    match pipe.readByte with
    | none => (false, out)
    | some (c, pipe) => if c = ch '\n' then (true, out) else readUpTo room pipe (out ++ [c])

def Service.readLine (pipe : Pipe) : Bool × Str := readUpTo kMaxRequestBytes pipe []

def Client.readLine (pipe : Pipe) : Bool × Str := readUpTo kMaxResponseBytes pipe []

/-- Bytes arrive in order, whatever pieces they were written in. -/
theorem Pipe.readByte_eq (pipe : Pipe) :
    match pipe.readByte with
    | none => pipe.flatten = []
    | some (c, rest) => pipe.flatten = c :: rest.flatten := by
  fun_induction Pipe.readByte pipe with
  | case1 => rfl
  | case2 pipe ih => exact ih
  | case3 c s pipe => rfl

/-- A line that fits is read, and one that does not is given up. -/
theorem readUpTo_line {body : Str} (hn : ch '\n' ∉ body) {rest : Str} {pipe : Pipe}
    (hp : pipe.flatten = body ++ ch '\n' :: rest) (room : Nat) (out : Str) :
    readUpTo room pipe out = if body.length < room then (true, out ++ body) else (false, out ++ body.take room) := by
  induction room generalizing body pipe out with
  | zero => simp [readUpTo]
  | succ room ih =>
    have hread := pipe.readByte_eq
    simp only [readUpTo]
    split at hread
    · rw [hread] at hp
      cases body <;> cases hp
    next c pipe' hr =>
    rw [hread] at hp
    cases body with
    | nil =>
      obtain ⟨rfl, -⟩ := List.cons.inj hp
      simp
    | cons b body =>
      rw [List.cons_append] at hp
      obtain ⟨rfl, hrest⟩ := List.cons.inj hp
      have hc : c ≠ ch '\n' := fun h => hn (by simp [h])
      simp only [hc, if_false]
      rw [ih (fun h => hn (by simp [h])) hrest]
      simp

/-! ## Writing -/

/-- Writes the data in pieces. `write k` answers the `k`-th `WriteFile`: how many
bytes it took, or that it failed. -/
def writeAll (write : Nat → Option Nat) (k : Nat) (data : Str) : Bool × Pipe :=
  if data = [] then (true, [])
  else match write k with
    | none | some 0 => (false, [])
    | some (w + 1) =>
      let (ok, pipe) := writeAll write (k + 1) (data.drop (w + 1))
      (ok, data.take (w + 1) :: pipe)
termination_by data.length
decreasing_by
  have hpos := List.length_pos_iff.2 ‹¬data = []›
  simp only [List.length_drop]
  omega

/-- The service writes the whole line at once. -/
def Service.writeLine (written : Bool) (data : Str) : Bool × Pipe :=
  let buf := data ++ lit "\n"
  if kMaxResponseBytes < buf.length then (false, [])
  else if written then (true, [buf])
  else (false, [])

theorem writeAll_flatten (write : Nat → Option Nat) (k : Nat) (data : Str) (h : (writeAll write k data).1 = true) :
    (writeAll write k data).2.flatten = data := by
  fun_induction writeAll write k data with
  | case1 => rfl
  | case2 => cases h
  | case3 => cases h
  | case4 k data hd w hw ok pipe hrec ih =>
    rw [hrec] at ih
    rw [List.flatten_cons, ih h, List.take_append_drop]

/-- Where no write fails, everything is written. -/
theorem writeAll_ok {write : Nat → Option Nat} (hw : ∀ k, ∃ w, write k = some (w + 1)) (k : Nat) (data : Str) :
    (writeAll write k data).1 = true := by
  fun_induction writeAll write k data with
  | case1 => rfl
  | case2 k data hd hk =>
    obtain ⟨w, hw⟩ := hw k
    rw [hk] at hw
    cases hw
  | case3 k data hd hk =>
    obtain ⟨w, hw⟩ := hw k
    rw [hk] at hw
    cases hw
  | case4 k data hd w hw ok pipe hrec ih =>
    rw [hrec] at ih
    exact ih

/-! ## A call of the client -/

/-- The line `call` sends, unless it refuses the request as too large. -/
def requestLine (J : JsonText) (request : Json) : Except JsonError (Option Str) := do
  let body ← J.dump none request
  if kMaxRequestBytes < body.length then .ok none else .ok (some (body ++ lit "\n"))

/-- What the pipe answers to one call. -/
structure CallOutcome where
  available : Bool := true
  opened : Except Nat Unit := .ok ()
  write : Nat → Option Nat
  reply : Pipe

/-- The reply, and what was written. `what` is the text of a parse error. -/
def call (J : JsonText) (what : Str → Str) (request : Json) (o : CallOutcome) : Except JsonError Json × Pipe :=
  if !o.available then (.ok (refuse (lit "priv pipe unavailable (service not running?)")), [])
  else match o.opened with
    | .error code => (.ok (refuse (lit "open priv pipe failed: " ++ writeNat code)), [])
    | .ok () =>
      match requestLine J request with
      | .error e => (.error e, [])
      | .ok none => (.ok (refuse (lit "request too large")), [])
      | .ok (some line) =>
        match writeAll o.write 0 line with
        | (false, sent) => (.ok (refuse (lit "write to priv pipe failed")), sent)
        | (true, sent) =>
          match Client.readLine o.reply with
          | (false, _) => (.ok (refuse (lit "read from priv pipe failed")), sent)
          | (true, line) =>
            match J.parse line with
            | some j => (.ok j, sent)
            | none => (.ok (refuse (lit "priv response parse: " ++ what line)), sent)

/-- A request that is not refused arrives as it was dumped, in whatever pieces it was written. -/
def Received (J : JsonText) (request : Json) : Prop :=
  ∀ what o body, J.dump none request = .ok body → o.available = true → o.opened = .ok () →
    (∀ k, ∃ w, o.write k = some (w + 1)) → (call J what request o).1 ≠ .ok (refuse (lit "request too large")) →
    Service.readLine (call J what request o).2 = (true, body)

/-- A reply that is sent arrives as it was dumped. -/
def Returned (J : JsonText) (reply : Json) : Prop :=
  ∀ body pipe written, J.dump none reply = .ok body → Service.writeLine written body = (true, pipe) →
    ∀ pieces : Pipe, pieces.flatten = pipe.flatten → Client.readLine pieces = (true, body)

theorem requestLine_ok {J : JsonText} {request : Json} {body : Str} (hd : J.dump none request = .ok body) :
    requestLine J request = .ok (if kMaxRequestBytes < body.length then none else some (body ++ lit "\n")) := by
  simp only [requestLine, hd, bind, Except.bind]
  split <;> rfl

theorem refuse_inj {msg msg' : Str} (h : refuse msg = refuse msg') : msg = msg' := by
  have hget : ∀ m, (refuse m).get? (lit "error") = some (.str m) := fun _ => rfl
  have heq := congrArg (Json.get? (lit "error")) h
  rw [hget, hget] at heq
  cases heq
  rfl

/-- The service reads a request of the client unless it is just too long. -/
theorem readLine_request {body : Str} (hn : ch '\n' ∉ body) (hl : body.length ≤ kMaxRequestBytes) {pipe : Pipe}
    (hp : pipe.flatten = body ++ lit "\n") :
    Service.readLine pipe = (true, body) ↔ body.length ≠ kMaxRequestBytes := by
  rw [Service.readLine, readUpTo_line hn hp]
  split
  · next h => exact iff_of_true rfl (Nat.ne_of_lt h)
  · next h =>
    refine iff_of_false ?_ ?_
    · rintro ⟨⟩
    · omega

theorem returned {J : JsonText} (hJ : J.OneLine) (reply : Json) : Returned J reply := by
  intro body pipe written hd hw pieces hp
  simp only [Service.writeLine] at hw
  split at hw
  · cases hw
  next hl =>
  split at hw
  · cases hw
    have hlen : body.length < kMaxResponseBytes := by
      rw [List.length_append] at hl
      have hone : (lit "\n").length = 1 := rfl
      omega
    rw [List.flatten_cons, List.flatten_nil, List.append_nil] at hp
    rw [Client.readLine, readUpTo_line (hJ reply body hd) hp, if_pos hlen]
    rfl
  · cases hw

section
variable {J : JsonText} {request : Json} {body : Str} (hd : J.dump none request = .ok body) {o : CallOutcome}
  (ha : o.available = true) (ho : o.opened = .ok ())
include hd ha ho

theorem call_too_large (what : Str → Str) (hl : kMaxRequestBytes < body.length) :
    call J what request o = (.ok (refuse (lit "request too large")), []) := by
  simp only [call, ha, ho, requestLine_ok hd, if_pos hl, Bool.not_true, Bool.false_eq_true, if_false]

/-- What a call that is not refused writes. -/
theorem call_sent (what : Str → Str) (hl : body.length ≤ kMaxRequestBytes) (hw : ∀ k, ∃ w, o.write k = some (w + 1)) :
    (call J what request o).2.flatten = body ++ lit "\n" := by
  have hsent := writeAll_ok hw 0 (body ++ lit "\n")
  rw [← writeAll_flatten _ _ _ hsent]
  simp only [call, ha, ho, requestLine_ok hd, if_neg (Nat.not_lt.2 hl), Bool.not_true, Bool.false_eq_true, if_false]
  generalize writeAll o.write 0 (body ++ lit "\n") = w at hsent
  obtain ⟨ok, sent⟩ := w
  subst hsent
  simp only
  split
  · rfl
  · split <;> rfl

/-- No reply comes. -/
theorem call_unanswered (what : Str → Str) (hl : body.length ≤ kMaxRequestBytes) (hw : ∀ k, ∃ w, o.write k = some (w + 1))
    (hr : o.reply = []) : (call J what request o).1 = .ok (refuse (lit "read from priv pipe failed")) := by
  have hsent := writeAll_ok hw 0 (body ++ lit "\n")
  have hread : Client.readLine o.reply = (false, []) := by
    rw [hr]
    rfl
  simp only [call, ha, ho, requestLine_ok hd, if_neg (Nat.not_lt.2 hl), Bool.not_true, Bool.false_eq_true, if_false]
  generalize writeAll o.write 0 (body ++ lit "\n") = w at hsent
  obtain ⟨ok, sent⟩ := w
  subst hsent
  simp only [hread]

end

/-- The longest request that is not refused is lost. -/
theorem not_received {J : JsonText} {request : Json} {body : Str} (hd : J.dump none request = .ok body)
    (hn : ch '\n' ∉ body) (hlen : body.length = kMaxRequestBytes) : ¬Received J request := by
  intro h
  let o : CallOutcome := { write := fun _ => some 1, reply := [] }
  have hw : ∀ k, ∃ w, o.write k = some (w + 1) := fun _ => ⟨0, rfl⟩
  have hread := h id o body hd rfl rfl hw ?_
  · exact (readLine_request hn hlen.le (call_sent hd rfl rfl id hlen.le hw)).1 hread hlen
  · rw [call_unanswered hd rfl rfl id hlen.le hw rfl]
    intro heq
    exact absurd (refuse_inj (Except.ok.inj heq)) (by decide)

/-- Every reply arrives, and every request the client sends arrives except those
of exactly `kMaxRequestBytes` bytes. -/
theorem request_received_iff (J : JsonText) (hJ : J.OneLine) (request reply : Json) (body : Str)
    (hd : J.dump none request = .ok body) :
    (Received J request ↔ body.length ≠ kMaxRequestBytes) ∧ Returned J reply := by
  refine ⟨?_, returned hJ reply⟩
  have hone := hJ request body hd
  constructor
  · exact fun h hlen => not_received hd hone hlen h
  · intro hlen what o body' hd' ha ho hw hsent
    cases hd.symm.trans hd'
    have hl : body.length ≤ kMaxRequestBytes := by
      by_contra hl
      rw [call_too_large hd ha ho what (by omega)] at hsent
      exact hsent rfl
    exact (readLine_request hone hl (call_sent hd ha ho what hl hw)).2 hlen

theorem request_received_iff_short :
    Received jsonText (.obj [(lit "op", .str (lit "userdel"))]) ∧ Returned jsonText okReply := by
  have h := request_received_iff jsonText jsonText_oneLine (.obj [(lit "op", .str (lit "userdel"))]) okReply
    (lit "\x7b\"op\":\"userdel\"\x7d") (by decide +kernel)
  exact ⟨h.1.2 (by decide), h.2⟩

/-- A request to run a command of `n` bytes. -/
def longRequest (n : Nat) : Json :=
  .obj [(lit "command", .str (List.replicate n (ch 'a'))), (lit "op", .str (lit "run_as")),
    (lit "shortid", .str (lit "abcdefgh"))]

theorem longRequest_dump (n : Nat) :
    ∃ body, jsonText.dump none (longRequest n) = .ok body ∧ body.length = n + 49 := by
  have hutf8 : (longRequest n).utf8 = true := by
    have hcommand : validUtf8 (List.replicate n (ch 'a')) = true := by
      apply validUtf8_ascii
      intro c hc
      rw [List.eq_of_mem_replicate hc]
      decide
    have hrest : (validUtf8 (lit "command") && true && (validUtf8 (lit "op") && validUtf8 (lit "run_as") &&
        (validUtf8 (lit "shortid") && validUtf8 (lit "abcdefgh") && true))) = true := by decide +kernel
    simp only [longRequest, Json.utf8, Json.utf8Fields, hcommand]
    exact hrest
  have hcommand : (writeStr (List.replicate n (ch 'a'))).length = n + 2 := by
    have ha : escByte (ch 'a') = [ch 'a'] := by decide +kernel
    simp [writeStr, ha]
  have hdump : jsonText.dump none (longRequest n) = .ok (write none 0 (longRequest n)) := by
    simp only [jsonText, hutf8, if_true]
  refine ⟨_, hdump, ?_⟩
  have hkeys : (writeStr (lit "command")).length = 9 ∧ (writeStr (lit "op")).length = 4 ∧ (writeStr (lit "run_as")).length = 8 ∧
      (writeStr (lit "shortid")).length = 9 ∧ (writeStr (lit "abcdefgh")).length = 10 := by decide +kernel
  obtain ⟨h1, h2, h3, h4, h5⟩ := hkeys
  simp only [longRequest, write, writeFields, newline, colon, pad, List.length_cons, List.length_append, List.length_nil, hcommand,
    h1, h2, h3, h4, h5, Option.isSome_none, Bool.false_eq_true, if_false]
  omega

/-- The client sends a request of exactly `kMaxRequestBytes` bytes, and the service does not receive it. -/
theorem longest_request_lost : ∃ request body, jsonText.dump none request = .ok body ∧ ch '\n' ∉ body ∧
    body.length = kMaxRequestBytes ∧ ¬Received jsonText request := by
  obtain ⟨body, hd, hlen⟩ := longRequest_dump (kMaxRequestBytes - 49)
  have hone := jsonText_oneLine _ _ hd
  exact ⟨_, body, hd, hone, hlen, not_received hd hone hlen⟩

end McpBridge.PrivWin
