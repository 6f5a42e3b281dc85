import McpBridge.Server.Handler
import Mathlib.Logic.Basic
/-!
# Every request is answered

A request that reached the router is to be answered by one JSON-RPC envelope
with its id, holding a result or an error, and a notification by an empty 204.
This file says when the POST handler does that, whatever the routed handler
did.
-/

open McpBridge.Lib McpBridge.Core

namespace McpBridge.Server

/-- A JSON-RPC envelope for `id`, with a result or an error but not both. -/
def IsEnvelope (id e : Json) : Prop :=
  e.get? (lit "jsonrpc") = some (.str (lit "2.0")) ∧ e.get? (lit "id") = some id ∧
    Xor (e.contains (lit "result") = true) (e.contains (lit "error") = true)

/-- The answer the protocol asks for. -/
def Answered (J : JsonText) (rpc : Request) (o : Outcome) : Prop :=
  ∃ r, o = .response r ∧ if rpc.isNotification then r.status = 204 ∧ r.content = none
    else ∃ e text, r.content = some text ∧ J.dump none e = .ok text ∧ IsEnvelope rpc.id e

namespace HandlerResult

def isNothing : HandlerResult → Bool
  | .nothing => true
  | _ => false

/-- What is sent of a result is valid UTF-8. -/
def utf8 : HandlerResult → Bool
  | .value j => j.utf8
  | .nothing => true
  | .mcpError _ what => validUtf8 (cstr what)
  | .exception what => validUtf8 (cstr what)

end HandlerResult

/-- The keys and constants of an envelope are UTF-8. -/
theorem validUtf8_envelope : ∀ k ∈ [lit "jsonrpc", lit "2.0", lit "id", lit "result", lit "error", lit "code", lit "message"],
    validUtf8 k = true := by
  decide +kernel

theorem makeResponse_utf8 (id result : Json) : (makeResponse id result).utf8 = (id.utf8 && result.utf8) := by
  have h : makeResponse id result =
      .obj [(lit "id", id), (lit "jsonrpc", .str (lit "2.0")), (lit "result", result)] := rfl
  have hk := validUtf8_envelope
  simp only [List.forall_mem_cons] at hk
  simp [h, Json.utf8, Json.utf8Fields, hk]

theorem makeError_utf8 (id : Json) (code : Int) (message : Str) :
    (makeError id code message).utf8 = (id.utf8 && validUtf8 message) := by
  have h : makeError id code message = .obj [(lit "error", .obj [(lit "code", .int code), (lit "message", .str message)]),
      (lit "id", id), (lit "jsonrpc", .str (lit "2.0"))] := rfl
  have hk := validUtf8_envelope
  simp only [List.forall_mem_cons] at hk
  simp [h, Json.utf8, Json.utf8Fields, hk, Bool.and_comm]

theorem isEnvelope_makeResponse (id result : Json) : IsEnvelope id (makeResponse id result) :=
  ⟨rfl, rfl, .inl ⟨rfl, Bool.false_ne_true⟩⟩

theorem isEnvelope_makeError (id : Json) (code : Int) (message : Str) : IsEnvelope id (makeError id code message) :=
  ⟨rfl, rfl, .inr ⟨rfl, Bool.false_ne_true⟩⟩

section
variable {J : JsonText}

/-- An envelope is sent iff its strings are UTF-8. -/
theorem send_answered (hJ : J.DumpsUtf8) {rpc : Request} (hn : rpc.isNotification = false) {status : Nat}
    {header : Option Str} {e : Json} (he : IsEnvelope rpc.id e) :
    Answered J rpc (send J status header e) ↔ e.utf8 = true := by
  rw [← hJ none e]
  constructor
  · rintro ⟨r, hr, -⟩
    simp only [send] at hr
    split at hr
    · next text ht => exact ⟨text, ht⟩
    · cases hr
  · rintro ⟨text, ht⟩
    refine ⟨⟨status, header, some text⟩, by simp [send, ht], ?_⟩
    rw [hn]
    exact ⟨e, text, rfl, ht, he⟩

theorem reply_answered_iff (hJ : J.DumpsUtf8) (rpc : Request) (header : Option Str) (r : HandlerResult) :
    Answered J rpc (reply J rpc header r) ↔
      rpc.isNotification = true ∨ (r.isNothing = false ∧ rpc.id.utf8 = true ∧ r.utf8 = true) := by
  cases hn : rpc.isNotification with
  | true =>
    refine iff_of_true ?_ (.inl rfl)
    cases r <;> exact ⟨⟨204, header, none⟩, by simp [reply, hn], by simp [hn]⟩
  | false =>
    cases r with
    | value j =>
      simp only [reply, hn, Bool.false_eq_true, if_false, false_or]
      rw [send_answered hJ hn (isEnvelope_makeResponse _ _), makeResponse_utf8, Bool.and_eq_true]
      exact (and_iff_right rfl).symm
    | nothing =>
      simp [reply, hn, Answered, HandlerResult.isNothing]
    | mcpError code what =>
      simp only [reply, hn, Bool.false_eq_true, if_false, false_or]
      rw [send_answered hJ hn (isEnvelope_makeError _ _ _), makeError_utf8, Bool.and_eq_true]
      exact (and_iff_right rfl).symm
    | exception what =>
      simp only [reply, hn, Bool.false_eq_true, if_false, false_or]
      rw [send_answered hJ hn (isEnvelope_makeError _ _ _), makeError_utf8, Bool.and_eq_true]
      exact (and_iff_right rfl).symm

variable (hash : Str → Str → Str) (router : McpRouter)

theorem servePost_reply {env : Env} {req : HttpRequest} {s : Srv} {ctx : RequestContext} {rpc : Request} :
    (servePost J hash router env req s).dispatched = some (ctx, rpc) → ∃ header,
      (servePost J hash router env req s).outcome = reply J rpc header (router.dispatch rpc.method ctx rpc.params) := by
  simp only [servePost]
  -- Only the last branch dispatches.
  repeat' split
  all_goals rintro ⟨⟩
  exact ⟨_, rfl⟩

/-- A request that reaches the router ends in the reply to what the handler did. -/
theorem post_reply {env : Env} {req : HttpRequest} {s : Srv} {ctx : RequestContext} {rpc : Request}
    (hd : (post J hash router env req s).dispatched = some (ctx, rpc)) :
    ∃ header, (post J hash router env req s).outcome =
      reply J rpc header (router.dispatch rpc.method ctx rpc.params) := by
  simp only [post] at hd ⊢
  split at hd
  · cases hd
  · exact servePost_reply hash router hd

theorem mcpToolsCall_isNothing (reg : ToolRegistry) (ctx : RequestContext) (params : Json) :
    (mcpToolsCall J reg ctx params).isNothing = false := by
  simp only [mcpToolsCall]
  repeat' split
  all_goals rfl

/-- Of the MCP methods, only `notifications/initialized` returns nothing. -/
theorem makeDefaultRouter_isNothing (reg : ToolRegistry) (method : Str) (ctx : RequestContext) (params : Json) :
    ((makeDefaultRouter J reg).dispatch method ctx params).isNothing = true ↔
      method = lit "notifications/initialized" := by
  simp only [makeDefaultRouter, McpRouter.dispatch, Map.lookup_insert_if, AList.lookup_empty]
  by_cases hcall : method = lit "tools/call"
  · simp only [hcall, if_true, mcpToolsCall_isNothing]
    exact iff_of_false Bool.false_ne_true (by decide)
  by_cases hlist : method = lit "tools/list"
  · have hne : lit "tools/list" ≠ lit "notifications/initialized" := by decide
    rw [if_neg hcall, if_pos hlist, hlist]
    refine iff_of_false ?_ hne
    cases mcpToolsList reg <;> exact Bool.false_ne_true
  by_cases hshutdown : method = lit "shutdown"
  · rw [if_neg hcall, if_neg hlist, if_pos hshutdown, hshutdown]
    exact iff_of_false Bool.false_ne_true (by decide)
  by_cases hping : method = lit "ping"
  · rw [if_neg hcall, if_neg hlist, if_neg hshutdown, if_pos hping, hping]
    exact iff_of_false Bool.false_ne_true (by decide)
  rw [if_neg hcall, if_neg hlist, if_neg hshutdown, if_neg hping]
  by_cases hinit : method = lit "notifications/initialized"
  · rw [if_pos hinit]
    exact iff_of_true rfl hinit
  · rw [if_neg hinit]
    refine iff_of_false ?_ hinit
    split
    · exact Bool.false_ne_true
    · next h =>
      split at h
      · cases h; exact Bool.false_ne_true
      · cases h

/-- A request that reached the router is answered if and only if it is a
notification, or the handler did not return nothing and what is sent is UTF-8. -/
theorem dispatched_answered_iff (hJ : J.DumpsUtf8) (env : Env) (req : HttpRequest) (s : Srv) (ctx : RequestContext)
    (rpc : Request) (hd : (post J hash router env req s).dispatched = some (ctx, rpc)) :
    (Answered J rpc (post J hash router env req s).outcome ↔
      rpc.isNotification = true ∨ ((router.dispatch rpc.method ctx rpc.params).isNothing = false ∧
        rpc.id.utf8 = true ∧ (router.dispatch rpc.method ctx rpc.params).utf8 = true)) ∧
    ∀ reg, router = makeDefaultRouter J reg →
      ((router.dispatch rpc.method ctx rpc.params).isNothing = true ↔ rpc.method = lit "notifications/initialized") := by
  obtain ⟨header, ho⟩ := post_reply hash router hd
  refine ⟨by rw [ho]; exact reply_answered_iff hJ rpc header _, ?_⟩
  rintro reg rfl
  exact makeDefaultRouter_isNothing reg _ _ _

end

/-- What the example server makes of a method, in the session `u`. -/
abbrev exampleServed (method : String) : Served :=
  post jsonText (· ++ ·) (makeDefaultRouter jsonText ∅) (exampleEnv 20) (exampleRequest "u" method) exampleOpened

/-- `notifications/initialized` sent with an id. The handler returns nothing,
and the reply reads it. -/
theorem initialized_with_id_unanswered : ∃ ctx rpc,
    (exampleServed "notifications/initialized").dispatched = some (ctx, rpc) ∧ rpc.isNotification = false ∧
      ¬ Answered jsonText rpc (exampleServed "notifications/initialized").outcome := by
  have h : (exampleServed "notifications/initialized").dispatched.map (fun p => (p.2.isNotification, p.2.method)) =
      some (false, lit "notifications/initialized") := by
    decide +kernel
  obtain ⟨⟨ctx, rpc⟩, hd, h⟩ := Option.map_eq_some_iff.1 h
  simp only [Prod.mk.injEq] at h
  refine ⟨ctx, rpc, hd, h.1, fun ha => ?_⟩
  obtain ⟨header, ho⟩ := post_reply _ _ hd
  rw [ho, reply_answered_iff jsonText_dumpsUtf8] at ha
  rcases ha with hn | ⟨hnothing, -⟩
  · rw [h.1] at hn
    cases hn
  · rw [(makeDefaultRouter_isNothing ∅ _ _ _).2 h.2] at hnothing
    cases hnothing

/-- `ping` is answered. -/
theorem ping_answered : ∃ ctx rpc, (exampleServed "ping").dispatched = some (ctx, rpc) ∧
    Answered jsonText rpc (exampleServed "ping").outcome := by
  have h : (exampleServed "ping").dispatched.map (fun p =>
      (((makeDefaultRouter jsonText ∅).dispatch p.2.method p.1 p.2.params).isNothing, p.2.id.utf8,
        ((makeDefaultRouter jsonText ∅).dispatch p.2.method p.1 p.2.params).utf8)) = some (false, true, true) := by
    decide +kernel
  obtain ⟨⟨ctx, rpc⟩, hd, h⟩ := Option.map_eq_some_iff.1 h
  simp only [Prod.mk.injEq] at h
  have hiff := dispatched_answered_iff (· ++ ·) (makeDefaultRouter jsonText ∅) jsonText_dumpsUtf8 _ _ _ ctx rpc hd
  exact ⟨ctx, rpc, hd, hiff.1.2 (.inr h)⟩

end McpBridge.Server
