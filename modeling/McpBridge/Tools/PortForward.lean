import McpBridge.Lib.JsonText
import Mathlib.Data.List.Basic
/-!
# Port forwards (`platform/linux/firewall_linux.cpp`, `tools/networking/firewall_ops.cpp`)

A forward is a rule of the chain PREROUTING in the table nat. `add_port_forward`
appends one; `delete_port_forward` deletes the rules it describes itself, one for
each protocol, without the destination. No rule is ever described so when it is
added, and none is deleted.
-/

open McpBridge.Lib

namespace McpBridge.Tools.PortForward

/-! ## The chain -/

structure Rule where
  protocol : Str
  port : Int
  target : Str
  options : List Str
deriving DecidableEq

abbrev Chain := List Rule

inductive Command where
  | append (r : Rule)
  | delete (r : Rule)

def Rule.args (r : Rule) : List Str :=
  [lit "-p", r.protocol, lit "--dport", writeInt r.port, lit "-j", r.target] ++ r.options

def Command.line : Command → Str
  | .append r => lit "iptables -t nat -A PREROUTING " ++ unwords r.args
  | .delete r => lit "iptables -t nat -D PREROUTING " ++ unwords r.args

/-- The chain after a command, and whether it exits with 0. -/
def Command.run (chain : Chain) : Command → Chain × Bool
  | .append r => (chain ++ [r], true)
  | .delete r => (chain.erase r, chain.contains r)

/-! ## The functions -/

section
variable (sourcePort : Int)

def addLine (destHost : Str) (destPort : Int) (protocol : Str) : Str :=
  let proto := if protocol = [] then lit "tcp" else protocol
  lit "iptables -t nat -A PREROUTING -p " ++ proto ++ lit " --dport " ++ writeInt sourcePort ++
    lit " -j DNAT --to-destination " ++ destHost ++ lit ":" ++ writeInt destPort

def deleteLine : Str :=
  lit "iptables -t nat -D PREROUTING -p tcp --dport " ++ writeInt sourcePort ++ lit " -j DNAT 2>/dev/null; " ++
    lit "iptables -t nat -D PREROUTING -p udp --dport " ++ writeInt sourcePort ++ lit " -j DNAT 2>/dev/null"

def forward (destHost : Str) (destPort : Int) (protocol : Str) : Rule where
  protocol := if protocol = [] then lit "tcp" else protocol
  port := sourcePort
  target := lit "DNAT"
  options := [lit "--to-destination", destHost ++ lit ":" ++ writeInt destPort]

/-- A rule as it is described for deletion. -/
def bare (protocol : Str) : Rule := ⟨protocol, sourcePort, lit "DNAT", []⟩

theorem addLine_eq (destHost : Str) (destPort : Int) (protocol : Str) :
    addLine sourcePort destHost destPort protocol = (Command.append (forward sourcePort destHost destPort protocol)).line := by
  simp only [addLine, Command.line, Rule.args, forward]
  repeat rw [lit_ofList]
  simp [unwords]

theorem deleteLine_eq : deleteLine sourcePort = (Command.delete (bare sourcePort (lit "tcp"))).line ++ lit " 2>/dev/null; " ++
    ((Command.delete (bare sourcePort (lit "udp"))).line ++ lit " 2>/dev/null") := by
  simp only [deleteLine, Command.line, Rule.args, bare]
  repeat rw [lit_ofList]
  simp [unwords]

def addPortForward (chain : Chain) (destHost : Str) (destPort : Int) (protocol : Str) : Chain × Bool :=
  (Command.append (forward sourcePort destHost destPort protocol)).run chain

def deletePortForward (chain : Chain) : Chain × Bool :=
  let tcp := (Command.delete (bare sourcePort (lit "tcp"))).run chain
  -- The exit status of the line is that of its last command.
  (Command.delete (bare sourcePort (lit "udp"))).run tcp.1

/-! ## Deleting a forward -/

/-- No forward for the port, to any destination. -/
def NoForward (chain : Chain) : Prop := ∀ r ∈ chain, r.target = lit "DNAT" → r.port ≠ sourcePort

instance (chain : Chain) : Decidable (NoForward sourcePort chain) := List.decidableBAll _ _

/-- Adding a forward and deleting the port restores the chain, and the deletion says whether it removed a rule. -/
def Undone (chain : Chain) (destHost : Str) (destPort : Int) (protocol : Str) : Prop :=
  let added := (addPortForward sourcePort chain destHost destPort protocol).1
  let deleted := deletePortForward sourcePort added
  deleted.1 = chain ∧ (deleted.2 = true ↔ deleted.1 ≠ added)

variable {sourcePort}

theorem forward_ne_bare (destHost : Str) (destPort : Int) (protocol protocol' : Str) :
    forward sourcePort destHost destPort protocol ≠ bare sourcePort protocol' := by
  intro h
  have hoptions := congrArg Rule.options h
  cases hoptions

/-- What `delete_port_forward` removes has no options: every other rule stays as often as it was. -/
theorem count_deletePortForward {r : Rule} (h : r.options ≠ []) (chain : Chain) :
    (deletePortForward sourcePort chain).1.count r = chain.count r := by
  have hne : ∀ protocol, r ≠ bare sourcePort protocol := by
    rintro protocol rfl
    exact h rfl
  unfold deletePortForward Command.run
  rw [List.count_erase_of_ne (hne _), List.count_erase_of_ne (hne _)]

/-- The result is about the second deletion alone. -/
theorem deletePortForward_true_iff (chain : Chain) :
    (deletePortForward sourcePort chain).2 = true ↔ bare sourcePort (lit "udp") ∈ chain := by
  have hne : bare sourcePort (lit "udp") ≠ bare sourcePort (lit "tcp") := by
    intro h
    have hprotocol : lit "udp" = lit "tcp" := congrArg Rule.protocol h
    exact absurd hprotocol (by decide)
  unfold deletePortForward Command.run
  rw [List.contains_iff_mem, List.mem_erase_of_ne hne]

/-- On a chain without forwards for the port, nothing is deleted, and the deletion fails. -/
theorem deletePortForward_leaves {chain : Chain} (h : NoForward sourcePort chain) (destHost : Str) (destPort : Int) (protocol : Str) :
    deletePortForward sourcePort (addPortForward sourcePort chain destHost destPort protocol).1 =
      (chain ++ [forward sourcePort destHost destPort protocol], false) := by
  have habsent : ∀ protocol', bare sourcePort protocol' ∉ chain ++ [forward sourcePort destHost destPort protocol] := by
    intro protocol' hm
    rcases List.mem_append.1 hm with hm | hm
    · exact h _ hm rfl rfl
    · exact forward_ne_bare _ _ _ _ (List.mem_singleton.1 hm).symm
  unfold deletePortForward addPortForward Command.run
  simp only [List.erase_of_not_mem (habsent _), List.contains_eq_mem, habsent, decide_false]

/-- A forward is never undone: the rule that was added is there once more than before. -/
theorem forward_never_undone (sourcePort : Int) (chain : Chain) (destHost : Str) (destPort : Int) (protocol : Str) :
    ¬ Undone sourcePort chain destHost destPort protocol := by
  rintro ⟨hrestored, -⟩
  have hadded : (addPortForward sourcePort chain destHost destPort protocol).1 =
      chain ++ [forward sourcePort destHost destPort protocol] := rfl
  have hoptions : (forward sourcePort destHost destPort protocol).options ≠ [] := List.cons_ne_nil _ _
  rw [hadded] at hrestored
  have hcount := congrArg (List.count (forward sourcePort destHost destPort protocol)) hrestored
  rw [count_deletePortForward hoptions, List.count_append, List.count_singleton_self] at hcount
  omega

/-- Port 8080 forwarded to a web server, on an empty chain. -/
theorem web_forward_stays : NoForward 8080 [] ∧
    deletePortForward 8080 (addPortForward 8080 [] (lit "10.0.0.5") 80 (lit "tcp")).1 =
      ([⟨lit "tcp", 8080, lit "DNAT", [lit "--to-destination", lit "10.0.0.5:80"]⟩], false) ∧
    ¬ Undone 8080 [] (lit "10.0.0.5") 80 (lit "tcp") := by
  have hleft : deletePortForward 8080 (addPortForward 8080 [] (lit "10.0.0.5") 80 (lit "tcp")).1 =
      ([⟨lit "tcp", 8080, lit "DNAT", [lit "--to-destination", lit "10.0.0.5:80"]⟩], false) := by decide
  refine ⟨by decide, hleft, ?_⟩
  rintro ⟨hrestored, -⟩
  rw [hleft] at hrestored
  cases hrestored

end

end McpBridge.Tools.PortForward
